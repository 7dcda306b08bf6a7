import Hive.Proofs.Segmentation

/-!
Strings that are not closed. A reader who goes through a text character by character, and keeps in
mind only whether a comment or a string is open, can tell where a string is opened that never ends.
That is where lexing fails, unless a number is too long for it.
-/

namespace Hive.Lexer

/-- What a reader of a text is in the middle of; of a string, where its opening quote is. -/
inductive Mode where
  | plain
  | comment
  | string (opening : Nat)
  /-- The character after a backslash comes next. -/
  | escape (opening : Nat)

namespace Mode

/-- What a reader is in the middle of after the character at an offset. -/
def next (offset : Nat) (c : Char) : Mode → Mode
  | .plain => if c = '#' then .comment else if c = '\x22' then .string offset else .plain
  | .comment => if c = '\n' then .plain else .comment
  | .string opening =>
    if c = '\x22' then .plain else if c = '\\' then .escape opening else .string opening
  | .escape opening => .string opening

/-- The offset of the opening quote of the string that is open. -/
def opening? : Mode → Option Nat
  | .plain | .comment => none
  | .string opening | .escape opening => some opening

end Mode

/-- What a reader is in the middle of after some text, whose first character is at the offset. -/
def modeAfter (offset : Nat) (mode : Mode) : List Char → Mode
  | [] => mode
  | c :: cs => modeAfter (offset + 1) (mode.next offset c) cs

/-- **The quote that is not closed**: the offset of the quote that opens a string which goes on to
the end of the text. -/
def openQuote? (text : List Char) : Option Nat := (modeAfter 0 .plain text).opening?

section Reading

variable {offset opening : Nat} {mode : Mode} {cs rest : List Char}

lemma modeAfter_append (offset : Nat) (mode : Mode) (cs rest : List Char) :
    modeAfter offset mode (cs ++ rest) =
      modeAfter (offset + cs.length) (modeAfter offset mode cs) rest := by
  induction cs generalizing offset mode with
  | nil => rfl
  | cons c cs ih =>
    have hlength : offset + (c :: cs).length = offset + 1 + cs.length := by simp; omega
    rw [List.cons_append, hlength]
    exact ih (offset + 1) (mode.next offset c)

lemma modeAfter_plain (h : ∀ c ∈ cs, c ≠ '#' ∧ c ≠ '\x22') :
    modeAfter offset .plain cs = .plain := by
  induction cs generalizing offset with
  | nil => rfl
  | cons c cs ih =>
    obtain ⟨hhash, hquote⟩ := h c (by simp)
    have hnext : Mode.next offset c .plain = .plain := by simp [Mode.next, hhash, hquote]
    rw [modeAfter, hnext]
    exact ih fun d hd => h d (by simp [hd])

lemma modeAfter_comment (h : '\n' ∉ cs) : modeAfter offset .comment cs = .comment := by
  induction cs generalizing offset with
  | nil => rfl
  | cons c cs ih =>
    simp only [List.mem_cons, not_or] at h
    have hnext : Mode.next offset c .comment = .comment := by simp [Mode.next, Ne.symm h.1]
    rw [modeAfter, hnext]
    exact ih h.2

/-- At the end of a line, it makes no difference whether there was a comment on it. -/
lemma opening?_comment (h : ∀ c ∈ rest.head?, c = '\n') :
    (modeAfter offset .comment rest).opening? = (modeAfter offset .plain rest).opening? := by
  cases rest with
  | nil => rfl
  | cons c rest =>
    obtain rfl := h c rfl
    rfl

lemma modeAfter_pieces (pieces : List Piece) :
    modeAfter offset (.string opening) (pieces.flatMap Piece.written) = .string opening := by
  induction pieces generalizing offset with
  | nil => rfl
  | cons piece pieces ih =>
    rw [List.flatMap_cons, modeAfter_append]
    have hpiece : modeAfter offset (.string opening) piece.written = .string opening := by
      cases piece with
      | plain c hc => simp [Piece.written, modeAfter, Mode.next, hc]
      | escaped c => simp [Piece.written, modeAfter, Mode.next]
    rw [hpiece]
    exact ih

/-- A string whose end is not found stays open. -/
lemma opening?_of_stringBody? (h : stringBody? cs = none) :
    (modeAfter offset (.string opening) cs).opening? = some opening := by
  fun_induction stringBody? cs generalizing offset with
  | case1 => rfl
  | case2 cs => cases h
  | case3 c cs ih => exact ih (Option.map_eq_none_iff.1 h)
  | case4 c cs hquote hescape ih =>
    have hrest : (modeAfter (offset + 1) (.string opening) cs).opening? = some opening :=
      ih (Option.map_eq_none_iff.1 h)
    by_cases hc : c = '\\'
    · -- a backslash that is no escape is the last character
      cases cs with
      | nil => simp [modeAfter, Mode.next, Mode.opening?, hc]
      | cons d cs => exact absurd rfl (hescape d cs hc)
    · have hne : c ≠ '\x22' := hquote
      simpa [modeAfter, Mode.next, hne, hc] using hrest

end Reading

/-! ### Scans -/

lemma ne_of_single? {c : Char} {kind : TokenKind} (h : single? c = some kind) :
    c ≠ '#' ∧ c ≠ '\x22' := by
  constructor <;> rintro rfl <;> cases h

lemma ne_of_compound? {c : Char} {kinds : TokenKind × TokenKind} (h : compound? c = some kinds) :
    c ≠ '#' ∧ c ≠ '\x22' := by
  constructor <;> rintro rfl <;> cases h

lemma ne_of_isWordPart {c : Char} (h : c.isAlphanum = true) : c ≠ '#' ∧ c ≠ '\x22' :=
  ⟨ne_of_isAlphanum h rfl, ne_of_isAlphanum h rfl⟩

lemma ne_of_isNumberPart {c : Char} (h : isNumberPart c = true) : c ≠ '#' ∧ c ≠ '\x22' := by
  constructor <;> rintro rfl <;> cases h

lemma modeAfter_of_stands {lexeme rest : List Char} {kind : TokenKind} {literal : Json}
    (h : Stands lexeme rest kind literal) (offset : Nat) :
    modeAfter offset .plain lexeme = .plain := by
  cases h with
  | single hkind => exact modeAfter_plain (by simpa using ne_of_single? hkind)
  | joined hkinds => exact modeAfter_plain (by simpa using ne_of_compound? hkinds)
  | alone hkinds => exact modeAfter_plain (by simpa using ne_of_compound? hkinds)
  | string pieces =>
    -- the one token with a quote in it opens a string and closes it
    have hopen : Mode.next offset '\x22' .plain = .string offset := rfl
    rw [List.cons_append, modeAfter, hopen, modeAfter_append, modeAfter_pieces]
    rfl
  | integer _ hdigits =>
    exact modeAfter_plain fun c hc => ne_of_isNumberPart (isNumberPart_of_isDigit (hdigits c hc))
  | double _ hwhole hfraction _ hignored =>
    refine modeAfter_plain fun c hc => ne_of_isNumberPart ?_
    simp only [List.mem_append, List.mem_cons] at hc
    rcases hc with hc | rfl | hc | hc
    · exact isNumberPart_of_isDigit (hwhole c hc)
    · rfl
    · exact isNumberPart_of_isDigit (hfraction c hc)
    · exact hignored c hc
  | word hc hcs =>
    exact modeAfter_plain (List.forall_mem_cons.2
      ⟨ne_of_isWordPart (isAlphanum_of_isAlpha hc), fun d hd => ne_of_isWordPart (hcs d hd)⟩)
  | identifier hc hcs =>
    exact modeAfter_plain (List.forall_mem_cons.2
      ⟨ne_of_isWordPart (isAlphanum_of_isAlpha hc), fun d hd => ne_of_isWordPart (hcs d hd)⟩)

/-- What a scan has read does not matter for what is open at the end. -/
lemma opening?_of_reads {s : Scan} (h : Reads s) (offset : Nat) :
    (modeAfter offset .plain (s.written ++ s.rest)).opening? =
      (modeAfter (offset + s.written.length) .plain s.rest).opening? := by
  rw [modeAfter_append]
  cases h with
  | token hstands => rw [modeAfter_of_stands hstands]
  | comment hbody hrest =>
    have hopen : Mode.next offset '#' .plain = .comment := rfl
    rw [modeAfter, hopen, modeAfter_comment hbody]
    exact opening?_comment hrest
  | @idle c rest hc =>
    have hne : c ≠ '#' ∧ c ≠ '\x22' := by
      constructor <;> rintro rfl <;> cases hc
    rw [modeAfter_plain (by simpa using hne)]

/-- The only problem that a scan reports is a string that is not closed. -/
lemma scan_eq_error {line : Int} {c : Char} {cs : List Char} {d : Diagnostic}
    (h : scan line c cs = .error (.error d)) :
    c = '\x22' ∧ stringBody? cs = none ∧ d = .on line .unterminatedString := by
  unfold scan at h
  split at h
  · cases h
  · split at h <;> cases h
  · split at h
    · cases h
    split at h
    · rename_i hquote
      split at h
      · cases h
      · rename_i hbody
        exact ⟨hquote, hbody, (Failure.error.inj (Except.error.inj h)).symm⟩
    split at h
    · dsimp only at h
      split at h <;> cases h
    · split at h <;> cases h

/-- **A problem in lexing is a string that is not closed**, on the line of its opening quote. -/
theorem openQuote_of_tokensFrom {line : Nat} {before cs : List Char} {d : Diagnostic}
    (hline : line = 1 + before.count '\n') (h : tokensFrom line cs = .error (.error d)) :
    ∃ opening, (modeAfter before.length .plain cs).opening? = some opening ∧
      d = .on (lineAt (before ++ cs) opening) .unterminatedString := by
  induction hlen : cs.length using Nat.strong_induction_on generalizing line before cs with
  | _ n ih =>
  cases cs with
  | nil =>
    rw [tokensFrom] at h
    cases h
  | cons c cs =>
    rcases tokensFrom_eq_error h with hs | ⟨s, hs, hmore⟩
    · -- the scan that fails is the one of the string that is left open
      obtain ⟨rfl, hbody, rfl⟩ := scan_eq_error hs
      refine ⟨before.length, opening?_of_stringBody? hbody, ?_⟩
      rw [lineAt, List.take_left, ← hline]
    · have happ := scan_append hs
      have hshort := scan_rest_length hs
      have hnext : line + s.written.count '\n' = 1 + (before ++ s.written).count '\n' := by
        rw [List.count_append, hline]
        omega
      obtain ⟨opening, hopening, rfl⟩ :=
        ih s.rest.length (by simp only [List.length_cons] at hlen; omega) hnext hmore rfl
      refine ⟨opening, ?_, by rw [List.append_assoc, happ]⟩
      rw [← happ, opening?_of_reads (reads_of_scan hs), ← hopening, List.length_append]

end Hive.Lexer
