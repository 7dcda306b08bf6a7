import Hive.Literal
import Hive.Proofs.Numerals
import Hive.Proofs.Segmentation
import Mathlib.Data.List.Forall2

/-!
Texts that lex to what they are written for. A token that stands at the front of a text is its first
one, whatever comes after it. So a literal that is written by the rules lexes to its value, a string
as well as the digits of an integer; and the lexemes of a text, with a space between each two, lex to
the tokens that they come from. Main statements: `Token.lex_literals` and `Token.lex_respaced`.
-/

namespace Hive

/-- What a token is, wherever it stands. -/
def Token.face (t : Token) : TokenKind × Json × Json := (t.kind, t.lexeme, t.literal)

namespace Lexer

/-! ### Tokens at the front -/

lemma Stands.ne_nil {lexeme rest : List Char} {kind : TokenKind} {literal : Json}
    (h : Stands lexeme rest kind literal) : lexeme ≠ [] := by
  cases h with
  | integer hne => exact hne
  | _ => simp

/-- **A token that stands at the front of a text is its first one.** -/
lemma tokensFrom_stands {lexeme rest : List Char} {kind : TokenKind} {literal : Json}
    (h : Stands lexeme rest kind literal) (hlimit : WithinLimit lexeme literal) (line : Nat) :
    tokensFrom line (lexeme ++ rest) = (tokensFrom (line + lexeme.count '\n') rest).map
      (⟨kind, .str (String.ofList lexeme), literal, line⟩ :: ·) := by
  obtain ⟨c, cs, hcs⟩ : ∃ c cs, lexeme ++ rest = c :: cs :=
    List.exists_cons_of_ne_nil fun hnil => h.ne_nil (List.append_eq_nil_iff.1 hnil).1
  rw [hcs, tokensFrom_step, scan_of_withinLimit h hlimit hcs.symm]
  show (tokensFrom (line + lexeme.count '\n') rest >>= fun more => pure (_ :: more)) = _
  cases tokensFrom (line + lexeme.count '\n') rest <;> rfl

lemma lex_of_stands {lexeme : List Char} {kind : TokenKind} {literal : Json}
    (h : Stands lexeme [] kind literal) (hlimit : WithinLimit lexeme literal) :
    Token.lex (String.ofList lexeme) = .ok
      [⟨kind, .str (String.ofList lexeme), literal, 1⟩, .atEnd (1 + lexeme.count '\n' : Nat)] := by
  have hlex := tokensFrom_stands h hlimit 1
  rw [List.append_nil, tokensFrom] at hlex
  rw [Token.lex, String.toList_ofList, hlex]
  rfl

/-! ### Strings -/

/-- The characters of a string that is written with the given parts. -/
def quoted (pieces : List Piece) : List Char :=
  '\x22' :: pieces.flatMap Piece.written ++ ['\x22']

/-- A text as a string of a program: a backslash stands before each quote and each backslash. -/
def quote (s : String) : String :=
  String.ofList ('\x22' :: s.toList.flatMap
    (fun c => if c = '\x22' ∨ c = '\\' then ['\\', c] else [c]) ++ ['\x22'])

lemma lex_quoted (pieces : List Piece) :
    Token.lex (String.ofList (quoted pieces)) = .ok
      [⟨.literal .str, .str (String.ofList (quoted pieces)),
          .str (String.ofList (pieces.map Piece.decoded)), 1⟩,
        .atEnd (1 + (quoted pieces).count '\n' : Nat)] :=
  lex_of_stands (.string pieces) nofun

lemma decoded_escaped (c : Char) :
    (Piece.escaped c).decoded = if c = 'n' then '\n' else if c = 't' then '\t' else c := by
  show unescape c = _
  unfold unescape
  split
  · rfl
  · rfl
  · rename_i hn ht
    rw [if_neg hn, if_neg ht]

/-- A character of a text as a part of a string: quotes and backslashes need an escape. -/
def Piece.ofChar (c : Char) : Piece :=
  if h : c ≠ '\x22' ∧ c ≠ '\\' then .plain c h else .escaped c

lemma Piece.decoded_ofChar (c : Char) : (ofChar c).decoded = c := by
  unfold ofChar
  split
  · rfl
  · rename_i h
    rcases Classical.not_and_iff_not_or_not.1 h with hc | hc
    · rw [not_not.1 hc]
      rfl
    · rw [not_not.1 hc]
      rfl

lemma Piece.written_ofChar (c : Char) :
    (ofChar c).written = if c = '\x22' ∨ c = '\\' then ['\\', c] else [c] := by
  unfold ofChar
  by_cases h : c = '\x22' ∨ c = '\\'
  · rw [dif_neg (by rwa [← not_or, not_not]), if_pos h]
    rfl
  · rw [dif_pos (not_or.1 h), if_neg h]
    rfl

lemma quote_eq (s : String) : quote s = String.ofList (quoted (s.toList.map Piece.ofChar)) := by
  simp only [quote, quoted, List.flatMap_map, Piece.written_ofChar]

/-- **A quoted text lexes back.** -/
lemma lex_quote (s : String) :
    ∃ last, Token.lex (quote s) = .ok [⟨.literal .str, .str (quote s), .str s, 1⟩, .atEnd last] := by
  have hdecoded : (s.toList.map Piece.ofChar).map Piece.decoded = s.toList := by
    rw [List.map_map]
    exact List.map_id'' Piece.decoded_ofChar _
  have hlex := lex_quoted (s.toList.map Piece.ofChar)
  rw [hdecoded, String.ofList_toList, ← quote_eq] at hlex
  exact ⟨_, hlex⟩

/-! ### Integers -/

/-- **Digits lex to their value**, if they are not too many. -/
lemma lex_digits {digits : List Char} (hne : digits ≠ []) (hdigits : ∀ c ∈ digits, c.isDigit = true)
    (hlength : digits.length ≤ digitLimit) :
    Token.lex (String.ofList digits) = .ok
      [⟨.literal .int, .str (String.ofList digits), .int (Text.decimalValue digits), 1⟩,
        .atEnd 1] := by
  have hcount : digits.count '\n' = 0 := List.count_eq_zero.2 fun h => by cases hdigits _ h
  have hlex := lex_of_stands (.integer hne hdigits nofun) fun _ _ => hlength
  rw [hcount] at hlex
  exact hlex

lemma lex_toDigits (n zeros : Nat) (h : zeros + (Nat.toDigits 10 n).length ≤ digitLimit) :
    Token.lex (String.ofList (List.replicate zeros '0' ++ Nat.toDigits 10 n)) = .ok
      [⟨.literal .int, .str (String.ofList (List.replicate zeros '0' ++ Nat.toDigits 10 n)),
        .int n, 1⟩, .atEnd 1] := by
  have hne : List.replicate zeros '0' ++ Nat.toDigits 10 n ≠ [] := by simp
  have hdigits := Text.isDigit_append (Text.isDigit_zeros zeros) (Text.isDigit_toDigits n)
  have hlex := lex_digits hne hdigits (by rwa [List.length_append, List.length_replicate])
  rwa [Text.decimalValue_zeros_append, Text.decimalValue_toDigits] at hlex

lemma text_int (n : Int) : (Literal.int n).text = integerText n := rfl

/-- **The printed form of an integer that is not negative lexes back.** -/
lemma lex_text {n : Nat} {text : String} (h : (Literal.int n).text = .ok text) :
    Token.lex text = .ok [⟨.literal .int, .str text, .int n, 1⟩, .atEnd 1] := by
  rw [text_int, integerText] at h
  split at h
  · rename_i hprintable
    obtain rfl := Except.ok.inj h
    have hlength : (Nat.toDigits 10 n).length ≤ digitLimit :=
      (Nat.length_toDigits_le_iff (by decide) (by decide)).2 (of_decide_eq_true hprintable)
    have hdecimal : decimalText n = String.ofList (Nat.toDigits 10 n) := by
      have hpositive : ¬(n : Int) < 0 := by omega
      rw [decimalText, if_neg hpositive]
      rfl
    rw [hdecimal]
    exact lex_toDigits n 0 (by rwa [Nat.zero_add])
  · cases h

/-! ### Other spaces -/

/-- A token stands before a space as before anything else, and at the end of the text as well. -/
lemma Stands.before_space {lexeme rest more : List Char} {kind : TokenKind} {literal : Json}
    (h : Stands lexeme rest kind literal) (hmore : ∀ c ∈ more.head?, c = ' ') :
    Stands lexeme more kind literal := by
  have hstop {p : Char → Bool} (hp : p ' ' = false) : ∀ c ∈ more.head?, p c = false :=
    fun c hc => by rw [hmore c hc, hp]
  cases h with
  | single h => exact .single h
  | joined h => exact .joined h
  | alone h _ => exact .alone h fun hhead => by cases hmore _ hhead
  | string pieces => exact .string pieces
  | integer hne hdigits _ => exact .integer hne hdigits (hstop rfl)
  | double hne hwhole hfraction hdot hignored _ =>
    exact .double hne hwhole hfraction hdot hignored (hstop rfl)
  | word hc hcs _ h => exact .word hc hcs (hstop rfl) h
  | identifier hc hcs _ h => exact .identifier hc hcs (hstop rfl) h

/-- **The token is spelled with the characters**: they are its lexeme, and a token of its kind and
literal in some place. -/
structure Spelled (t : Token) (word : List Char) : Prop where
  lexeme : t.lexeme = .str (String.ofList word)
  stands : ∃ rest, Stands word rest t.kind t.literal
  withinLimit : WithinLimit word t.literal

lemma spelled_of_tokensFrom {line : Nat} {text : List Char} {tokens : List Token}
    (h : tokensFrom line text = .ok tokens) :
    ∃ front, ∃ last : Nat, tokens = front ++ [.atEnd last] ∧ ∀ t ∈ front, ∃ w, Spelled t w := by
  refine front_of_tokensFrom (fun {line c cs s kind literal} hs hfound => ?_) h
  have happ := scan_append hs
  have hread := reads_of_scan hs
  obtain ⟨written, token, rest⟩ := s
  cases hfound
  cases hread with
  | token hstands => exact ⟨written, rfl, ⟨rest, hstands⟩, withinLimit_of_scan hstands happ.symm hs⟩

/-- After the first of some words there is a space or nothing, and then come the others. -/
lemma intercalate_space (word : List Char) (words : List (List Char)) :
    ∃ more, [' '].intercalate (word :: words) = word ++ more ∧ (∀ c ∈ more.head?, c = ' ') ∧
      ∀ line, tokensFrom line more = tokensFrom line ([' '].intercalate words) := by
  cases words with
  | nil => exact ⟨[], by simp, nofun, fun _ => rfl⟩
  | cons next words =>
    refine ⟨' ' :: [' '].intercalate (next :: words), by simp, by simp, fun line => ?_⟩
    exact tokensFrom_skip (scan_idle rfl)

/-- **Words with spaces between them lex to the tokens that they spell.** -/
lemma tokensFrom_respaced {front : List Token} {words : List (List Char)}
    (h : List.Forall₂ Spelled front words) (line : Nat) :
    ∃ others, ∃ last : Nat,
      tokensFrom line ([' '].intercalate words) = .ok (others ++ [.atEnd last]) ∧
      others.map Token.face = front.map Token.face := by
  induction h generalizing line with
  | nil => exact ⟨[], line, by rw [List.intercalate_nil, tokensFrom]; rfl, rfl⟩
  | @cons t word front words hword _ ih =>
    obtain ⟨rest, hstands⟩ := hword.stands
    obtain ⟨more, happ, hmore, hskip⟩ := intercalate_space word words
    obtain ⟨others, last, hothers, hfaces⟩ := ih (line + word.count '\n')
    refine ⟨⟨t.kind, .str (String.ofList word), t.literal, line⟩ :: others, last, ?_, ?_⟩
    · rw [happ, tokensFrom_stands (hstands.before_space hmore) hword.withinLimit, hskip, hothers]
      rfl
    · rw [List.map_cons, List.map_cons, hfaces, Token.face, Token.face, hword.lexeme]

end Lexer

open Lexer

/-- **Literals lex to what they are written for.** A string lexes to its parts, each decoded: an
escape of `n` or `t` is the end of a line or a tab, and any other escape is the character itself; so
a quoted text lexes back. Digits lex to their value, with zeros in front or without, if there are
not more than the limit; so the printed form of an integer that is not negative lexes back. -/
theorem Token.lex_literals :
    (∀ pieces : List Piece, lex (String.ofList (quoted pieces)) = .ok
      [⟨.literal .str, .str (String.ofList (quoted pieces)),
          .str (String.ofList (pieces.map Piece.decoded)), 1⟩,
        .atEnd (1 + (quoted pieces).count '\n' : Nat)]) ∧
    (∀ c, (Piece.escaped c).decoded = if c = 'n' then '\n' else if c = 't' then '\t' else c) ∧
    (∀ s : String, ∃ last, lex (quote s) = .ok
      [⟨.literal .str, .str (quote s), .str s, 1⟩, .atEnd last]) ∧
    (∀ n zeros : Nat, zeros + (Nat.toDigits 10 n).length ≤ digitLimit →
      lex (String.ofList (List.replicate zeros '0' ++ Nat.toDigits 10 n)) = .ok
        [⟨.literal .int, .str (String.ofList (List.replicate zeros '0' ++ Nat.toDigits 10 n)),
          .int n, 1⟩, .atEnd 1]) ∧
    ∀ n : Nat, (n < printableBound → ∃ text, (Literal.int n).text = .ok text) ∧
      ∀ text, (Literal.int n).text = .ok text →
        lex text = .ok [⟨.literal .int, .str text, .int n, 1⟩, .atEnd 1] := by
  refine ⟨lex_quoted, decoded_escaped, lex_quote, lex_toDigits, fun n => ⟨?_, ?_⟩⟩
  · intro hn
    have hprintable : isPrintableInteger n = true := decide_eq_true hn
    exact ⟨decimalText n, by rw [text_int, integerText, if_pos hprintable]⟩
  · exact fun _ => lex_text

/-- Zeros in front do not count, and a string may end with a backslash that is escaped. -/
theorem Token.lex_literals_zeros :
    lex "007" = .ok [⟨.literal .int, .str "007", .int 7, 1⟩, .atEnd 1] ∧
    ∃ last, lex "\x22a\\\\\x22" =
      .ok [⟨.literal .str, .str "\x22a\\\\\x22", .str "a\\", 1⟩, .atEnd last] := by
  have hzeros := lex_literals.2.2.2.1 7 2 (by decide)
  have htext : String.ofList (List.replicate 2 '0' ++ Nat.toDigits 10 7) = "007" := by
    decide +kernel
  have hquote := lex_literals.2.2.1 "a\\"
  have hwritten : quote "a\\" = "\x22a\\\\\x22" := by decide +kernel
  rw [htext] at hzeros
  rw [hwritten] at hquote
  exact ⟨hzeros, hquote⟩

/-- **Lexemes lex back.** However a text that lexes is laid out, its lexemes with one space between
each two lex to as many tokens, which have the same kinds, lexemes and literals. -/
theorem Token.lex_respaced {source : String} {tokens : List Token} (h : lex source = .ok tokens) :
    ∃ front last lexemes others last', tokens = front ++ [.atEnd last] ∧
      front.map Token.lexeme = lexemes.map .str ∧
      lex (" ".intercalate lexemes) = .ok (others ++ [.atEnd last']) ∧
      others.map Token.face = front.map Token.face := by
  obtain ⟨front, last, rfl, hspelled⟩ := spelled_of_tokensFrom h
  choose! word hword using hspelled
  have hwords : List.Forall₂ Spelled front (front.map word) := by
    rw [List.forall₂_map_right_iff]
    exact List.forall₂_same.2 hword
  obtain ⟨others, last', hothers, hfaces⟩ := tokensFrom_respaced hwords 1
  refine ⟨front, last, (front.map word).map String.ofList, others, last', rfl, ?_, ?_, hfaces⟩
  · rw [List.map_map, List.map_map]
    exact List.map_congr_left fun t ht => (hword t ht).lexeme
  · have htext : (" ".intercalate ((front.map word).map String.ofList)).toList =
        [' '].intercalate (front.map word) := by
      simp [String.toList_intercalate, Function.comp_def]
    rw [lex, htext, hothers]

section Glued

/-- A text without spaces, in which numbers, words and operators meet, and a string over two lines
holds a hash and a quote. -/
def gluedSource : String := "12ab1.2.3!==\x22#\\\x22\n\x22x#\x22"

def gluedLexemes : List String := ["12", "ab1", ".", "2.3", "!=", "=", "\x22#\\\x22\n\x22", "x"]

theorem Token.lex_respaced_glued :
    ∃ tokens others, lex gluedSource = .ok tokens ∧ tokens.length = 9 ∧
      lex (" ".intercalate gluedLexemes) = .ok others ∧
      others.map Token.face = tokens.map Token.face := by
  have hlexed : (lex gluedSource).toOption.map (List.map Token.lexeme) =
      some (gluedLexemes.map Json.str ++ [.str ""]) := by decide +kernel
  cases hlex : lex gluedSource with
  | error f =>
    rw [hlex] at hlexed
    cases hlexed
  | ok tokens =>
    rw [hlex] at hlexed
    have hlexemes : tokens.map Token.lexeme = gluedLexemes.map Json.str ++ [.str ""] :=
      Option.some.inj hlexed
    have hlength : tokens.length = 9 := by simpa [gluedLexemes] using congrArg List.length hlexemes
    obtain ⟨front, last, lexemes, others, last', rfl, hfront, hothers, hfaces⟩ := lex_respaced hlex
    rw [List.map_append, hfront] at hlexemes
    have hstr : Function.Injective Json.str := fun _ _ => Json.str.inj
    have hsame : lexemes = gluedLexemes :=
      List.map_injective_iff.2 hstr (List.append_cancel_right hlexemes)
    rw [hsame] at hothers
    exact ⟨_, _, rfl, hlength, hothers, by rw [List.map_append, List.map_append, hfaces]; rfl⟩

end Glued

end Hive
