import Hive.Proofs.Segmentation

/-!
Texts one after the other. However the first one ends, in a comment, in the middle of a number or
with half an operator, the end of its line leaves the lexer with nothing begun, so the second text
is lexed as if it stood alone, but further down. Main statement: `Token.lex_append`.
-/

namespace Hive

/-- The token so many lines further down. -/
def Token.lower (n : Nat) (t : Token) : Token := { t with line := t.line + n }

def Diagnostic.lower (n : Nat) (d : Diagnostic) : Diagnostic :=
  match d.line with
  | .int line => { d with line := .int (line + n) }
  | _ => d

def Failure.lower (n : Nat) : Failure → Failure
  | .error d => .error (d.lower n)
  | .fault f => .fault f

namespace Lexer

/-- What a text comes to so many lines further down. -/
def lowered (n : Nat) : Except Failure (List Token) → Except Failure (List Token)
  | .ok tokens => .ok (tokens.map (Token.lower n))
  | .error f => .error (f.lower n)

/-! ### Further down -/

lemma tokens_lower (s : Scan) (line n : Nat) :
    s.tokens (line + n) = (s.tokens line).map (Token.lower n) := by
  cases hfound : s.token with
  | none => simp [Scan.tokens, hfound]
  | some found => simp [Scan.tokens, hfound, Token.lower]

lemma scan_lower (line n : Nat) (c : Char) (cs : List Char) :
    scan (line + n : Nat) c cs = (scan line c cs).mapError (Failure.lower n) := by
  unfold scan
  split
  · rfl
  · split <;> rfl
  · split
    · rfl
    split
    · split
      · rfl
      · simp [Except.mapError, Failure.lower, Diagnostic.lower, Diagnostic.on]
    split
    · dsimp only
      split <;> rfl
    · split <;> rfl

/-- **A text is lexed alike further down.** -/
theorem tokensFrom_lower (line n : Nat) (text : List Char) :
    tokensFrom (line + n) text = lowered n (tokensFrom line text) := by
  -- a scan reads one character or more, so the induction is on the length of the text
  induction hlen : text.length using Nat.strong_induction_on generalizing line text with
  | _ k ih =>
  cases text with
  | nil => simp [tokensFrom, lowered, Token.lower, Token.atEnd]
  | cons c cs =>
    rw [tokensFrom_step, tokensFrom_step, scan_lower]
    cases hs : scan line c cs with
    | error f => rfl
    | ok s =>
      have hshort := scan_rest_length hs
      have hrest := ih s.rest.length (by simp only [List.length_cons] at hlen; omega)
        (line + s.written.count '\n') s.rest rfl
      rw [Nat.add_right_comm] at hrest
      show (tokensFrom (line + n + s.written.count '\n') s.rest >>= fun more =>
          pure (s.tokens (line + n) ++ more)) =
        lowered n (tokensFrom (line + s.written.count '\n') s.rest >>= fun more =>
          pure (s.tokens line ++ more))
      rw [hrest]
      cases tokensFrom (line + s.written.count '\n') s.rest with
      | error f => rfl
      | ok more =>
        show Except.ok _ = Except.ok _
        rw [tokens_lower, List.map_append]

/-! ### More text after a line -/

section Runs

variable {p : Char → Bool} {d : Char} (hd : p d = false) (cs more : List Char)
include hd

lemma takeWhile_before : (cs ++ d :: more).takeWhile p = cs.takeWhile p := by
  induction cs with
  | nil => simp [hd]
  | cons c cs ih =>
    rw [List.cons_append, List.takeWhile_cons, List.takeWhile_cons, ih]

lemma dropWhile_before : (cs ++ d :: more).dropWhile p = cs.dropWhile p ++ d :: more := by
  induction cs with
  | nil => simp [hd]
  | cons c cs ih =>
    rw [List.cons_append, List.dropWhile_cons, List.dropWhile_cons, ih]
    split <;> rfl

end Runs

lemma stringBody?_before {cs decoded written rest : List Char}
    (h : stringBody? cs = some (decoded, written, rest)) (more : List Char) :
    stringBody? (cs ++ more) = some (decoded, written, rest ++ more) := by
  obtain ⟨pieces, rfl, rfl⟩ := pieces_of_stringBody? h
  have hcs := stringBody?_append h
  rw [← hcs, List.append_assoc, List.append_assoc]
  exact stringBody?_pieces pieces (rest ++ more)

/-- **A scan ends with its line**: what comes on the next one does not change what is read. -/
lemma scan_before {line : Int} {c : Char} {cs : List Char} {s : Scan}
    (h : scan line c cs = .ok s) (more : List Char) :
    scan line c (cs ++ '\n' :: more) = .ok { s with rest := s.rest ++ '\n' :: more } := by
  unfold scan at h ⊢
  split at h
  · cases h
    rfl
  · split at h
    · cases h
      rfl
    · rename_i hnot
      cases h
      -- the next character is the end of the line, where nothing else is left on it
      cases cs with
      | nil => rfl
      | cons d cs =>
        have hne : d ≠ '=' := fun hd => hnot cs (by rw [hd])
        simp only [List.cons_append]
        split
        · rename_i heq
          exact absurd (List.cons.inj heq).1 hne
        · rfl
  · split at h
    · rename_i hc
      cases h
      rw [if_pos hc, takeWhile_before rfl, dropWhile_before rfl]
    rename_i hhash
    rw [if_neg hhash]
    split at h
    · rename_i hquote
      rw [if_pos hquote]
      split at h
      · rename_i hbody
        cases h
        rw [stringBody?_before hbody]
      · cases h
    rename_i hquote
    rw [if_neg hquote]
    split at h
    · rename_i hdigit
      rw [if_pos hdigit, takeWhile_before rfl, dropWhile_before rfl]
      dsimp only at h ⊢
      split at h
      · rename_i hlexeme
        cases h
        rfl
      · cases h
    rename_i hdigit
    rw [if_neg hdigit]
    split at h
    · rename_i halnum
      cases h
      rw [if_pos halnum, takeWhile_before rfl, dropWhile_before rfl]
    · rename_i halnum
      cases h
      rw [if_neg halnum]

theorem tokensFrom_append {line : Nat} {text : List Char} {tokens : List Token}
    (h : tokensFrom line text = .ok tokens) (more : List Char) :
    ∃ front, tokens = front ++ [.atEnd (line + text.count '\n' : Nat)] ∧
      tokensFrom line (text ++ '\n' :: more) =
        (tokensFrom (line + (1 + text.count '\n')) more).map (front ++ ·) := by
  induction hlen : text.length using Nat.strong_induction_on generalizing line text tokens with
  | _ k ih =>
  cases text with
  | nil =>
    rw [tokensFrom] at h
    refine ⟨[], by simpa using (Except.ok.inj h).symm, ?_⟩
    -- the end of the line is a character that starts nothing
    have hidle : scan line '\n' more = .ok ⟨['\n'], none, more⟩ := scan_idle rfl
    have hskip := tokensFrom_skip hidle
    have hline : line + ['\n'].count '\n' = line + (1 + ([] : List Char).count '\n') := rfl
    rw [List.nil_append, hskip, hline]
    cases tokensFrom (line + (1 + ([] : List Char).count '\n')) more <;> rfl
  | cons c cs =>
    obtain ⟨s, rest, hs, hrest, rfl⟩ := tokensFrom_cons h
    have happ := scan_append hs
    have hshort := scan_rest_length hs
    have hcount : (c :: cs).count '\n' = s.written.count '\n' + s.rest.count '\n' := by
      rw [← happ, List.count_append]
    obtain ⟨front, rfl, hmore⟩ :=
      ih s.rest.length (by simp only [List.length_cons] at hlen; omega) hrest rfl
    refine ⟨s.tokens line ++ front, ?_, ?_⟩
    · rw [hcount, ← Nat.add_assoc, List.append_assoc]
      rfl
    · have hline : line + (1 + (c :: cs).count '\n') =
          line + s.written.count '\n' + (1 + s.rest.count '\n') := by omega
      rw [hline, List.cons_append, tokensFrom_step, scan_before hs]
      show (tokensFrom (line + s.written.count '\n') (s.rest ++ '\n' :: more) >>= fun after =>
        pure (s.tokens line ++ after)) = _
      rw [hmore]
      cases tokensFrom (line + s.written.count '\n' + (1 + s.rest.count '\n')) more with
      | error f => rfl
      | ok after =>
        exact congrArg Except.ok (List.append_assoc _ _ _).symm

end Lexer

open Lexer

/-- **Lexing goes line by line.** If a text lexes, another one on the lines after it lexes as it
does alone: it comes to the same tokens, or to the same failure, further down by the number of lines
of the first text. The tokens of the first text stand before them as they are, without the end. -/
theorem Token.lex_append {first : String} {tokens : List Token} (h : lex first = .ok tokens)
    (second : String) :
    tokens = tokens.dropLast ++ [.atEnd (1 + first.toList.count '\n' : Nat)] ∧
    lex (first ++ "\n" ++ second) = match lex second with
      | .ok more => .ok (tokens.dropLast ++ more.map (Token.lower (1 + first.toList.count '\n')))
      | .error f => .error (f.lower (1 + first.toList.count '\n')) := by
  obtain ⟨front, rfl, hmore⟩ := tokensFrom_append h second.toList
  have htext : (first ++ "\n" ++ second).toList = first.toList ++ '\n' :: second.toList := by
    simp
  rw [List.dropLast_concat]
  refine ⟨rfl, ?_⟩
  rw [lex, htext, hmore, tokensFrom_lower]
  show (lowered _ (lex second)).map _ = _
  cases lex second <;> rfl

/-- A text with a string that goes over the end of its line, and with half an operator at its end. -/
def halvedSource : String := "s = \x22a\\\n\x22 # \x22\nn = 1 !"

/-- What follows on the next line does not join what the text ends with, here `!` and `=`. -/
theorem Token.lex_append_halved :
    ∃ tokens, lex halvedSource = .ok tokens ∧
      tokens.map (fun t => (t.kind, t.line)) = [(.identifier, 1), (.equal, 1), (.literal .str, 1),
        (.identifier, 3), (.equal, 3), (.literal .int, 3), (.bang, 3), (.endOfInput, 3)] ∧
      lex (halvedSource ++ "\n" ++ "= 2") = .ok (tokens.dropLast ++
        [⟨.equal, .str "=", .null, 4⟩, ⟨.literal .int, .str "2", .int 2, 4⟩, .atEnd 4]) ∧
      lex (halvedSource ++ "\n" ++ "=\n\x22") =
        .error (.error (.on 5 .unterminatedString)) := by
  have hkinds : (lex halvedSource).toOption.map (List.map fun t => (t.kind, t.line)) =
      some [(.identifier, 1), (.equal, 1), (.literal .str, 1), (.identifier, 3), (.equal, 3),
        (.literal .int, 3), (.bang, 3), (.endOfInput, 3)] := by decide +kernel
  have hequal : lex "= 2" = .ok [⟨.equal, .str "=", .null, 1⟩,
      ⟨.literal .int, .str "2", .int 2, 1⟩, .atEnd 1] := by decide +kernel
  have hopen : lex "=\n\x22" = .error (.error (.on 2 .unterminatedString)) := by decide +kernel
  have hcount : halvedSource.toList.count '\n' = 2 := by decide +kernel
  cases hlex : lex halvedSource with
  | error f =>
    rw [hlex] at hkinds
    cases hkinds
  | ok tokens =>
    rw [hlex] at hkinds
    refine ⟨tokens, rfl, Option.some.inj hkinds, ?_, ?_⟩
    · rw [(lex_append hlex _).2, hequal, hcount]
      rfl
    · rw [(lex_append hlex _).2, hopen, hcount]
      rfl

end Hive
