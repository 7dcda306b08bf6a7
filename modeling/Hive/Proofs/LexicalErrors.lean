import Hive.Proofs.Quotes

/-!
What lexing can fail at. A string that is not closed is the only error of a text; besides, there is
the limit on the digits of an integer. So in texts that keep to the limit, the reader who minds only
comments and strings tells whether lexing fails, and where. Main statement:
`Token.lex_fails_iff_openQuote`.
-/

namespace Hive.Lexer

/-- **A reader comes to a place** of a text and has the rest before them: what is before the place
are tokens, comments and characters that start nothing. -/
inductive Reaches : (text rest : List Char) → Prop where
  | here {text : List Char} : Reaches text text
  | past {s : Scan} {rest : List Char} (hread : Reads s) (more : Reaches s.rest rest) :
    Reaches (s.written ++ s.rest) rest

/-- **An integer literal of a text**: digits that stand as an integer in a place that a reader comes
to. Digits in words, in strings and in comments are none, and neither are those of a number with a
dot. -/
def IntegerRun (text digits : List Char) : Prop :=
  ∃ rest literal, Reaches text (digits ++ rest) ∧ Stands digits rest (.literal .int) literal

lemma Reaches.length_le {text rest : List Char} (h : Reaches text rest) :
    rest.length ≤ text.length := by
  induction h with
  | here => exact Nat.le_refl _
  | @past s rest hread more ih =>
    rw [List.length_append]
    omega

lemma IntegerRun.length_le {text digits : List Char} (h : IntegerRun text digits) :
    digits.length ≤ text.length := by
  obtain ⟨rest, literal, hreaches, -⟩ := h
  have hlength := hreaches.length_le
  rw [List.length_append] at hlength
  omega

/-- The integers after what has been read are integers of the whole text. -/
lemma IntegerRun.past {s : Scan} {digits : List Char} (hread : Reads s)
    (h : IntegerRun s.rest digits) : IntegerRun (s.written ++ s.rest) digits := by
  obtain ⟨rest, literal, hreaches, hstands⟩ := h
  exact ⟨rest, literal, .past hread hreaches, hstands⟩

/-! ### Numbers that are too long -/

/-- A number cannot be read only if it is an integer of more digits than the limit. -/
lemma digits_of_lexeme_error {text : List Char} {f : Fault} (hne : text ≠ [])
    (htext : ∀ c ∈ text, isNumberPart c = true) (h : Numeral.lexeme text = .error f) :
    (∀ c ∈ text, c.isDigit = true) ∧ digitLimit < text.length := by
  have hdigits : ∀ c ∈ text, c.isDigit = true := by
    unfold Numeral.lexeme at h
    dsimp only at h
    split at h
    · rename_i hnodot
      intro c hc
      have hdot : c ≠ '.' := by simpa using List.dropWhile_eq_nil_iff.1 hnodot c hc
      exact isDigit_of_isNumberPart (htext c hc) hdot
    · cases h
  refine ⟨hdigits, ?_⟩
  rw [lexeme_of_digits hne hdigits, Numeral.ofDigits] at h
  split at h
  · cases h
  · omega

/-- The only fault of a scan is an integer of more digits than the limit. -/
lemma scan_eq_fault {line : Int} {c : Char} {cs : List Char} {f : Fault}
    (h : scan line c cs = .error (.fault f)) :
    ∃ digits, IntegerRun (c :: cs) digits ∧ digitLimit < digits.length := by
  -- no other scan has a fault: a string that is left open is a problem of the program
  have hdigit : c.isDigit = true := by
    by_contra hnot
    unfold scan at h
    split at h
    · cases h
    · split at h <;> cases h
    · split at h
      · cases h
      split at h
      · split at h <;> cases h
      split at h <;> cases h
  rw [scan_digit hdigit] at h
  split at h
  · cases h
  rename_i hlexeme
  have hne : (c :: cs).takeWhile isNumberPart ≠ [] := by
    rw [← (takeWhile_of_head (isNumberPart_of_isDigit hdigit) cs).1]
    exact List.cons_ne_nil _ _
  obtain ⟨hdigits, hlong⟩ :=
    digits_of_lexeme_error hne (fun d hd => List.mem_takeWhile_imp hd) hlexeme
  refine ⟨_, ⟨(c :: cs).dropWhile isNumberPart, _, ?_,
    .integer hne hdigits (head?_dropWhile (c :: cs))⟩, hlong⟩
  rw [List.takeWhile_append_dropWhile]
  exact .here

/-! ### Whole texts -/

/-- **A fault in lexing is an integer that is too long.** -/
theorem integerRun_of_tokensFrom {line : Nat} {cs : List Char} {f : Fault}
    (h : tokensFrom line cs = .error (.fault f)) :
    ∃ digits, IntegerRun cs digits ∧ digitLimit < digits.length := by
  induction hlen : cs.length using Nat.strong_induction_on generalizing line cs with
  | _ n ih =>
  cases cs with
  | nil =>
    rw [tokensFrom] at h
    cases h
  | cons c cs =>
    rcases tokensFrom_eq_error h with hs | ⟨s, hs, hmore⟩
    · exact scan_eq_fault hs
    · have hshort := scan_rest_length hs
      obtain ⟨digits, hrun, hlong⟩ :=
        ih s.rest.length (by simp only [List.length_cons] at hlen; omega) hmore rfl
      rw [← scan_append hs]
      exact ⟨digits, hrun.past (reads_of_scan hs), hlong⟩

/-- **In a text that lexes, all strings are closed.** -/
theorem opening?_of_tokensFrom {line : Nat} {cs : List Char} {tokens : List Token}
    (h : tokensFrom line cs = .ok tokens) (offset : Nat) :
    (modeAfter offset .plain cs).opening? = none := by
  induction hlen : cs.length using Nat.strong_induction_on generalizing line cs tokens offset with
  | _ n ih =>
  cases cs with
  | nil => rfl
  | cons c cs =>
    obtain ⟨s, more, hs, hmore, -⟩ := tokensFrom_cons h
    have hshort := scan_rest_length hs
    rw [← scan_append hs, opening?_of_reads (reads_of_scan hs)]
    exact ih s.rest.length (by simp only [List.length_cons] at hlen; omega) hmore _ rfl

end Hive.Lexer

namespace Hive

open Lexer

/-- **The only lexical error is a string that is not closed.** Let no integer literal of a text have
more digits than the limit. Then the text fails to lex exactly if a reader who minds only comments
and strings ends within a string, be it after a backslash or not, and the failure is that this
string is not closed, on the line of the quote that opens it. -/
theorem Token.lex_fails_iff_openQuote {source : String}
    (hdigits : ∀ digits, IntegerRun source.toList digits → digits.length ≤ digitLimit) :
    ((∃ f, lex source = .error f) ↔ ∃ opening, openQuote? source.toList = some opening) ∧
    ∀ opening, openQuote? source.toList = some opening →
      lex source = .error (.error (.on (lineAt source.toList opening) .unterminatedString)) := by
  cases hlex : lex source with
  | ok tokens =>
    have hclosed : openQuote? source.toList = none := opening?_of_tokensFrom hlex 0
    rw [hclosed]
    exact ⟨⟨nofun, nofun⟩, nofun⟩
  | error f =>
    cases f with
    | fault f =>
      obtain ⟨digits, hrun, hlong⟩ := integerRun_of_tokensFrom hlex
      exact absurd (hdigits digits hrun) (Nat.not_le_of_lt hlong)
    | error d =>
      have hstart : 1 = 1 + ([] : List Char).count '\n' := rfl
      obtain ⟨opening, hopening, rfl⟩ := openQuote_of_tokensFrom hstart hlex
      replace hopening : openQuote? source.toList = some opening := hopening
      refine ⟨⟨fun _ => ⟨opening, hopening⟩, fun _ => ⟨_, rfl⟩⟩, fun other hother => ?_⟩
      rw [hopening] at hother
      cases hother
      rfl

/-- A text with a quote in a comment. Its last string is opened on the third line, holds `#`, a
quote after a backslash and the end of a line, and there is a backslash at the very end. -/
def unclosedSource : String := "x = \x22\x22; # \x22\n7 . 2\ns = \x22# \\\x22\n12\\"

theorem Token.lex_fails_iff_openQuote_backslash :
    (∀ digits, IntegerRun unclosedSource.toList digits → digits.length ≤ digitLimit) ∧
      openQuote? unclosedSource.toList = some 22 ∧
      lex unclosedSource = .error (.error (.on 3 .unterminatedString)) := by
  have hdigits : ∀ digits, IntegerRun unclosedSource.toList digits →
      digits.length ≤ digitLimit := by
    intro digits hrun
    have hlength : unclosedSource.toList.length ≤ digitLimit := by decide +kernel
    exact Nat.le_trans hrun.length_le hlength
  have hopening : openQuote? unclosedSource.toList = some 22 := by decide +kernel
  have hline : lineAt unclosedSource.toList 22 = 3 := by decide +kernel
  have hlex := (lex_fails_iff_openQuote hdigits).2 22 hopening
  rw [hline] at hlex
  exact ⟨hdigits, hopening, hlex⟩

end Hive
