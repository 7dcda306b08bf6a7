import Hive.Token.Lexer
import Mathlib.Algebra.Group.Nat.Defs
import Mathlib.Data.List.TakeWhile
import Mathlib.Tactic.Common

/-!
What one scan reads. The tokens of a text are described without the scanner: `Stands` says which
characters in front of a rest are a token, each the longest of its class. A scan that succeeds has
read such a token, a comment or a character that starts nothing, and there is only one token that
can stand in a place.
-/

namespace Hive.Text

/-! ### Runs of digits -/

lemma decimalValue_eq (cs : List Char) : decimalValue cs = Nat.ofDigitChars 10 cs 0 := rfl

lemma decimalValue_append (cs ds : List Char) :
    decimalValue (cs ++ ds) = 10 ^ ds.length * decimalValue cs + decimalValue ds := by
  rw [decimalValue_eq, Nat.ofDigitChars_append, Nat.ofDigitChars_eq_ofDigitChars_zero]
  rfl

lemma digit_lt {c : Char} (h : c.isDigit = true) : c.toNat - '0'.toNat < 10 := by
  simp only [Char.isDigit, Bool.and_eq_true, decide_eq_true_eq, ge_iff_le,
    UInt32.le_iff_toNat_le] at h
  have h0 : '0'.toNat = 48 := rfl
  have h9 : '9'.val.toNat = 57 := rfl
  have hc : c.toNat = c.val.toNat := rfl
  omega

lemma decimalValue_lt {cs : List Char} (h : ∀ c ∈ cs, c.isDigit = true) :
    decimalValue cs < 10 ^ cs.length := by
  induction cs with
  | nil => simp [decimalValue]
  | cons c cs ih =>
    have hfirst := digit_lt (h c (by simp))
    have hmore := ih fun d hd => h d (by simp [hd])
    rw [decimalValue_eq, Nat.ofDigitChars_cons, Nat.ofDigitChars_eq_ofDigitChars_zero,
      ← decimalValue_eq, List.length_cons, Nat.pow_succ, Nat.mul_zero, Nat.zero_add]
    calc 10 ^ cs.length * (c.toNat - '0'.toNat) + decimalValue cs
        < 10 ^ cs.length * (c.toNat - '0'.toNat) + 10 ^ cs.length := by omega
      _ = 10 ^ cs.length * (c.toNat - '0'.toNat + 1) := (Nat.mul_succ _ _).symm
      _ ≤ 10 ^ cs.length * 10 := Nat.mul_le_mul_left _ hfirst

end Hive.Text

namespace Hive.Lexer

/-! ### Longest runs -/

section Runs

variable {p : Char → Bool} {run rest : List Char}

lemma takeWhile_run (hrun : ∀ c ∈ run, p c = true) (hrest : ∀ c ∈ rest.head?, p c = false) :
    (run ++ rest).takeWhile p = run := by
  rw [List.takeWhile_append_of_pos hrun]
  cases rest with
  | nil => simp
  | cons c rest => simp [hrest c rfl]

lemma dropWhile_run (hrun : ∀ c ∈ run, p c = true) (hrest : ∀ c ∈ rest.head?, p c = false) :
    (run ++ rest).dropWhile p = rest := by
  rw [List.dropWhile_append_of_pos hrun]
  cases rest with
  | nil => rfl
  | cons c rest => simp [hrest c rfl]

lemma head?_dropWhile (cs : List Char) : ∀ c ∈ (cs.dropWhile p).head?, p c = false := by
  intro c hc
  have h := List.head?_dropWhile_not p cs
  rw [Option.mem_def.1 hc] at h
  exact h

end Runs

/-! ### The tokens of a text -/

/-- A part of a string between its quotes: a character that stands for itself, or an escape. -/
inductive Piece where
  | plain (c : Char) (h : c ≠ '\x22' ∧ c ≠ '\\')
  | escaped (c : Char)

namespace Piece

def written : Piece → List Char
  | .plain c _ => [c]
  | .escaped c => ['\\', c]

def decoded : Piece → Char
  | .plain c _ => c
  | .escaped c => unescape c

end Piece

/-- **A token of a text**: the characters `lexeme`, in front of `rest`, are a token of the given
kind and literal. Where a class of tokens has no end of its own, the token goes on as far as it
can. -/
inductive Stands : (lexeme rest : List Char) → TokenKind → Json → Prop where
  | single {c : Char} {rest : List Char} {kind : TokenKind} (h : single? c = some kind) :
    Stands [c] rest kind .null
  | joined {c : Char} {rest : List Char} {alone joined : TokenKind}
    (h : compound? c = some (alone, joined)) : Stands [c, '='] rest joined .null
  | alone {c : Char} {rest : List Char} {alone joined : TokenKind}
    (h : compound? c = some (alone, joined)) (hrest : rest.head? ≠ some '=') :
    Stands [c] rest alone .null
  | string (pieces : List Piece) {rest : List Char} :
    Stands ('\x22' :: pieces.flatMap Piece.written ++ ['\x22']) rest (.literal .str)
      (.str (String.ofList (pieces.map Piece.decoded)))
  | integer {digits rest : List Char} (hne : digits ≠ []) (hdigits : ∀ c ∈ digits, c.isDigit = true)
    (hrest : ∀ c ∈ rest.head?, isNumberPart c = false) :
    Stands digits rest (.literal .int) (.int (Text.decimalValue digits))
  /-- All from a second dot on belongs to the number and does not count. -/
  | double {whole fraction ignored rest : List Char} (hne : whole ≠ [])
    (hwhole : ∀ c ∈ whole, c.isDigit = true) (hfraction : ∀ c ∈ fraction, c.isDigit = true)
    (hdot : ∀ c ∈ ignored.head?, c = '.') (hignored : ∀ c ∈ ignored, isNumberPart c = true)
    (hrest : ∀ c ∈ rest.head?, isNumberPart c = false) :
    Stands (whole ++ '.' :: (fraction ++ ignored)) rest (.literal .flt)
      (.flt (.ofDecimal false (Text.decimalValue (whole ++ fraction)) (-fraction.length)))
  | word {c : Char} {cs rest : List Char} {kind : TokenKind} (hc : c.isAlpha = true)
    (hcs : ∀ d ∈ cs, d.isAlphanum = true) (hrest : ∀ d ∈ rest.head?, d.isAlphanum = false)
    (h : (String.ofList (c :: cs), kind) ∈ TokenKind.words) : Stands (c :: cs) rest kind .null
  | identifier {c : Char} {cs rest : List Char} (hc : c.isAlpha = true)
    (hcs : ∀ d ∈ cs, d.isAlphanum = true) (hrest : ∀ d ∈ rest.head?, d.isAlphanum = false)
    (h : ∀ kind, (String.ofList (c :: cs), kind) ∉ TokenKind.words) :
    Stands (c :: cs) rest .identifier .null

def isIdle (c : Char) : Bool :=
  (single? c).isNone && (compound? c).isNone && c != '#' && c != '\x22' && !c.isAlphanum

/-- **What a scan may have read**: a token, a comment up to the end of its line, or a character that
starts nothing. -/
inductive Reads : Scan → Prop where
  | token {lexeme rest : List Char} {kind : TokenKind} {literal : Json}
    (h : Stands lexeme rest kind literal) : Reads ⟨lexeme, some (kind, literal), rest⟩
  | comment {body rest : List Char} (hbody : '\n' ∉ body) (hrest : ∀ c ∈ rest.head?, c = '\n') :
    Reads ⟨'#' :: body, none, rest⟩
  | idle {c : Char} {rest : List Char} (h : isIdle c = true) : Reads ⟨[c], none, rest⟩

/-! ### Strings -/

lemma pieces_of_stringBody? {cs decoded written rest : List Char}
    (h : stringBody? cs = some (decoded, written, rest)) :
    ∃ pieces : List Piece, decoded = pieces.map Piece.decoded ∧
      written = pieces.flatMap Piece.written ++ ['\x22'] := by
  fun_induction stringBody? cs generalizing decoded written rest with
  | case1 => cases h
  | case2 cs =>
    cases h
    exact ⟨[], rfl, rfl⟩
  | case3 c cs ih =>
    obtain ⟨⟨d, w, r⟩, hb, hp⟩ := Option.map_eq_some_iff.1 h
    cases hp
    obtain ⟨pieces, rfl, rfl⟩ := ih hb
    exact ⟨.escaped c :: pieces, rfl, rfl⟩
  | case4 c cs hquote hescape ih =>
    obtain ⟨⟨d, w, r⟩, hb, hp⟩ := Option.map_eq_some_iff.1 h
    cases hp
    obtain ⟨pieces, rfl, rfl⟩ := ih hb
    have hplain : c ≠ '\x22' ∧ c ≠ '\\' := by
      refine ⟨hquote, fun hc => ?_⟩
      -- a backslash that is no escape stands at the very end, where no string is closed
      cases cs with
      | nil => cases hb
      | cons d cs => exact hescape d cs hc rfl
    exact ⟨.plain c hplain :: pieces, rfl, rfl⟩

lemma stringBody?_pieces (pieces : List Piece) (rest : List Char) :
    stringBody? (pieces.flatMap Piece.written ++ '\x22' :: rest) =
      some (pieces.map Piece.decoded, pieces.flatMap Piece.written ++ ['\x22'], rest) := by
  induction pieces with
  | nil => simp [stringBody?]
  | cons piece pieces ih =>
    cases piece with
    | plain c h =>
      simp [Piece.written, Piece.decoded, stringBody?.eq_4 c _ h.1 (fun _ _ hc _ => h.2 hc), ih]
    | escaped c => simp [Piece.written, Piece.decoded, stringBody?, ih]

/-! ### Numbers -/

lemma isDigit_of_isNumberPart {c : Char} (h : isNumberPart c = true) (hc : c ≠ '.') :
    c.isDigit = true := by
  simpa [isNumberPart, hc] using h

lemma isNumberPart_of_isDigit {c : Char} (h : c.isDigit = true) : isNumberPart c = true := by
  simp [isNumberPart, h]

lemma ne_dot_of_isDigit {c : Char} (h : c.isDigit = true) : (c != '.') = true := by
  refine bne_iff_ne.2 fun hc => ?_
  rw [hc] at h
  cases h

lemma isDigit_of_mem_takeWhile {cs : List Char} (hcs : ∀ c ∈ cs, isNumberPart c = true) :
    ∀ c ∈ cs.takeWhile (· != '.'), c.isDigit = true := by
  intro c hc
  have hne : c ≠ '.' := by simpa using List.mem_takeWhile_imp hc
  exact isDigit_of_isNumberPart (hcs c ((List.takeWhile_prefix _).subset hc)) hne

lemma eq_dot_of_head? (cs : List Char) : ∀ c ∈ (cs.dropWhile (· != '.')).head?, c = '.' := by
  intro c hc
  simpa using head?_dropWhile cs c hc

lemma lexeme_of_digits {digits : List Char} (hne : digits ≠ [])
    (hdigits : ∀ c ∈ digits, c.isDigit = true) :
    Numeral.lexeme digits = (Numeral.ofDigits digits).map fun n => .int n := by
  have hdots : ∀ c ∈ digits, (c != '.') = true := fun c hc => ne_dot_of_isDigit (hdigits c hc)
  have htake : (digits ++ []).takeWhile (· != '.') = digits := takeWhile_run hdots (by simp)
  have hdrop : (digits ++ []).dropWhile (· != '.') = [] := dropWhile_run hdots (by simp)
  rw [List.append_nil] at htake hdrop
  unfold Numeral.lexeme
  rw [htake, hdrop]
  simp only [List.isEmpty_iff, hne, if_false]
  cases Numeral.ofDigits digits <;> rfl

lemma lexeme_of_dot {whole fraction ignored : List Char}
    (hwhole : ∀ c ∈ whole, c.isDigit = true) (hfraction : ∀ c ∈ fraction, c.isDigit = true)
    (hdot : ∀ c ∈ ignored.head?, c = '.') :
    Numeral.lexeme (whole ++ '.' :: (fraction ++ ignored)) =
      .ok (.flt (.ofDecimal false (Text.decimalValue (whole ++ fraction)) (-fraction.length))) := by
  have hw : ∀ c ∈ whole, (c != '.') = true := fun c hc => ne_dot_of_isDigit (hwhole c hc)
  have hf : ∀ c ∈ fraction, (c != '.') = true := fun c hc => ne_dot_of_isDigit (hfraction c hc)
  have hrest : ∀ c ∈ ('.' :: (fraction ++ ignored)).head?, (c != '.') = false := by simp
  have hignored : ∀ c ∈ ignored.head?, (c != '.') = false := fun c hc => by simp [hdot c hc]
  unfold Numeral.lexeme
  rw [takeWhile_run hw hrest, dropWhile_run hw hrest]
  simp only [takeWhile_run hf hignored]

/-- A run of number parts that starts with a digit is a number, if its digits are not too many. -/
lemma stands_number {text rest : List Char} {number : Number} (hne : text ≠ [])
    (htext : ∀ c ∈ text, isNumberPart c = true) (hfirst : ∀ c ∈ text.head?, c.isDigit = true)
    (hrest : ∀ c ∈ rest.head?, isNumberPart c = false) (h : Numeral.lexeme text = .ok number) :
    Stands text rest (numberToken number).1 (numberToken number).2 := by
  have hwhole := isDigit_of_mem_takeWhile htext
  have happ : text.takeWhile (· != '.') ++ text.dropWhile (· != '.') = text :=
    List.takeWhile_append_dropWhile
  have hpos : text.takeWhile (· != '.') ≠ [] := by
    cases text with
    | nil => exact absurd rfl hne
    | cons c cs => simp [ne_dot_of_isDigit (hfirst c rfl)]
  have hdots := eq_dot_of_head? text
  generalize text.takeWhile (· != '.') = whole at *
  generalize text.dropWhile (· != '.') = more at *
  subst happ
  -- without a dot the run is an integer, and with one a double whose fraction ends at the next dot
  cases more with
  | nil =>
    rw [List.append_nil] at h ⊢
    rw [lexeme_of_digits hpos hwhole] at h
    unfold Numeral.ofDigits at h
    split at h
    · cases h
      exact .integer hpos hwhole hrest
    · cases h
  | cons c more =>
    obtain rfl := hdots c rfl
    have hmore : ∀ d ∈ more, isNumberPart d = true := fun d hd => htext d (by simp [hd])
    have hfraction := isDigit_of_mem_takeWhile hmore
    have hignored : ∀ d ∈ more.dropWhile (· != '.'), isNumberPart d = true :=
      fun d hd => hmore d ((List.dropWhile_suffix _).subset hd)
    have hdot := eq_dot_of_head? more
    have happ : more.takeWhile (· != '.') ++ more.dropWhile (· != '.') = more :=
      List.takeWhile_append_dropWhile
    generalize more.takeWhile (· != '.') = fraction at *
    generalize more.dropWhile (· != '.') = ignored at *
    subst happ
    rw [lexeme_of_dot hwhole hfraction hdot] at h
    cases h
    exact .double hpos hwhole hfraction hdot hignored hrest

/-! ### Words -/

lemma ofWord_of_mem {word : String} {kind : TokenKind} (h : (word, kind) ∈ TokenKind.words) :
    TokenKind.ofWord word = kind := by
  have hall : ∀ entry ∈ TokenKind.words, TokenKind.ofWord entry.1 = entry.2 := by decide
  exact hall _ h

lemma ofWord_of_not_mem {word : String} (h : ∀ kind, (word, kind) ∉ TokenKind.words) :
    TokenKind.ofWord word = .identifier := by
  have hnone : TokenKind.words.find? (fun entry => entry.1 == word) = none := by
    refine List.find?_eq_none.2 fun entry hentry hword => h entry.2 ?_
    rw [← eq_of_beq hword]
    exact hentry
  unfold TokenKind.ofWord
  rw [hnone]
  rfl

lemma stands_word {c : Char} {cs rest : List Char} (hc : c.isAlpha = true)
    (hcs : ∀ d ∈ cs, d.isAlphanum = true) (hrest : ∀ d ∈ rest.head?, d.isAlphanum = false) :
    Stands (c :: cs) rest (.ofWord (String.ofList (c :: cs))) .null := by
  by_cases h : ∃ kind, (String.ofList (c :: cs), kind) ∈ TokenKind.words
  · obtain ⟨kind, h⟩ := h
    rw [ofWord_of_mem h]
    exact .word hc hcs hrest h
  · rw [not_exists] at h
    rw [ofWord_of_not_mem h]
    exact .identifier hc hcs hrest h

/-! ### Scans -/

/-- **What a scan reads** is a token, a comment or a character that starts nothing. -/
theorem reads_of_scan {line : Int} {c : Char} {cs : List Char} {s : Scan}
    (h : scan line c cs = .ok s) : Reads s := by
  unfold scan at h
  split at h
  · rename_i hkind
    cases h
    exact .token (.single hkind)
  · rename_i hkinds
    split at h
    · cases h
      exact .token (.joined hkinds)
    · rename_i hnext
      cases h
      refine .token (.alone hkinds fun hhead => ?_)
      obtain ⟨rest, rfl⟩ := List.head?_eq_some_iff.1 hhead
      exact hnext rest rfl
  · rename_i hsingle hcompound
    split at h
    · rename_i hhash
      cases h
      rw [hhash]
      refine .comment (fun hmem => ?_) fun d hd => ?_
      · simpa using List.mem_takeWhile_imp hmem
      · simpa using head?_dropWhile cs d hd
    rename_i hhash
    split at h
    · rename_i hquote
      split at h
      · rename_i hbody
        cases h
        obtain ⟨pieces, rfl, rfl⟩ := pieces_of_stringBody? hbody
        rw [hquote]
        exact .token (.string pieces)
      · cases h
    rename_i hquote
    split at h
    · rename_i hdigit
      dsimp only at h
      split at h
      · rename_i number hlexeme
        cases h
        refine .token (stands_number (by simp) (fun d hd => ?_) (by simpa using hdigit)
          (head?_dropWhile cs) hlexeme)
        rcases List.mem_cons.1 hd with rfl | hd
        · exact isNumberPart_of_isDigit hdigit
        · exact List.mem_takeWhile_imp hd
      · cases h
    rename_i hdigit
    split at h
    · rename_i halnum
      cases h
      refine .token (stands_word ?_ (fun d hd => List.mem_takeWhile_imp hd) (head?_dropWhile cs))
      simpa [Char.isAlphanum, hdigit] using halnum
    · rename_i halnum
      cases h
      exact .idle (by simp [isIdle, hsingle, hcompound, hhash, hquote, halnum])

/-! ### There is only one token in a place -/

lemma single?_of_isAlphanum {c : Char} (h : c.isAlphanum = true) : single? c = none := by
  unfold single?
  split
  all_goals first | rfl | cases h

lemma compound?_of_isAlphanum {c : Char} (h : c.isAlphanum = true) : compound? c = none := by
  unfold compound?
  split
  all_goals first | rfl | cases h

lemma single?_of_compound? {c : Char} {kinds : TokenKind × TokenKind}
    (h : compound? c = some kinds) : single? c = none := by
  unfold compound? at h
  split at h
  all_goals first | rfl | cases h

lemma takeWhile_of_head {p : Char → Bool} {c : Char} (hc : p c = true) (cs : List Char) :
    c :: cs.takeWhile p = (c :: cs).takeWhile p ∧ cs.dropWhile p = (c :: cs).dropWhile p := by
  simp [hc]

lemma isAlphanum_of_isDigit {c : Char} (h : c.isDigit = true) : c.isAlphanum = true := by
  simp [Char.isAlphanum, h]

lemma isAlphanum_of_isAlpha {c : Char} (h : c.isAlpha = true) : c.isAlphanum = true := by
  simp [Char.isAlphanum, h]

lemma isDigit_of_isAlpha {c : Char} (h : c.isAlpha = true) : c.isDigit = false := by
  refine Bool.eq_false_iff.2 fun hd => ?_
  have hdigit : c.toNat ≤ 57 := (Char.isDigit_iff_toNat.1 hd).2
  rcases Bool.or_eq_true_iff.1 h with hupper | hlower
  · have hletter : 65 ≤ c.toNat := (of_decide_eq_true hupper).1
    omega
  · have hletter : 97 ≤ c.toNat := of_decide_eq_true (Bool.and_eq_true_iff.1 hlower).1
    omega

lemma ne_of_isAlphanum {c d : Char} (hc : c.isAlphanum = true) (hd : d.isAlphanum = false) :
    c ≠ d := by
  rintro rfl
  rw [hc] at hd
  cases hd

lemma scan_quote {line : Int} {cs : List Char} :
    scan line '\x22' cs = match stringBody? cs with
      | some (decoded, written, rest) =>
        .ok ⟨'\x22' :: written, some (.literal .str, .str (String.ofList decoded)), rest⟩
      | none => .error (.error (.on line .unterminatedString)) := rfl

lemma scan_digit {line : Int} {c : Char} {cs : List Char} (hc : c.isDigit = true) :
    scan line c cs = match Numeral.lexeme ((c :: cs).takeWhile isNumberPart) with
      | .ok n => .ok ⟨(c :: cs).takeWhile isNumberPart, some (numberToken n),
          (c :: cs).dropWhile isNumberPart⟩
      | .error f => .error (.fault f) := by
  have halnum := isAlphanum_of_isDigit hc
  have hhash : c ≠ '#' := ne_of_isAlphanum halnum rfl
  have hquote : c ≠ '\x22' := ne_of_isAlphanum halnum rfl
  obtain ⟨htake, hdrop⟩ := takeWhile_of_head (isNumberPart_of_isDigit hc) cs
  unfold scan
  rw [single?_of_isAlphanum halnum, compound?_of_isAlphanum halnum, htake, hdrop]
  cases hlexeme : Numeral.lexeme ((c :: cs).takeWhile isNumberPart) with
  | ok n => simp only [hhash, hquote, hc, if_false, if_true, hlexeme]
  | error f => simp only [hhash, hquote, hc, if_false, if_true, hlexeme]

lemma scan_letter {line : Int} {c : Char} {cs : List Char} (hc : c.isAlpha = true) :
    scan line c cs = .ok ⟨(c :: cs).takeWhile Char.isAlphanum,
      some (.ofWord (String.ofList ((c :: cs).takeWhile Char.isAlphanum)), .null),
      (c :: cs).dropWhile Char.isAlphanum⟩ := by
  have halnum := isAlphanum_of_isAlpha hc
  have hhash : c ≠ '#' := ne_of_isAlphanum halnum rfl
  have hquote : c ≠ '\x22' := ne_of_isAlphanum halnum rfl
  obtain ⟨htake, hdrop⟩ := takeWhile_of_head halnum cs
  unfold scan
  rw [single?_of_isAlphanum halnum, compound?_of_isAlphanum halnum]
  simp only [hhash, hquote, isDigit_of_isAlpha hc, halnum, if_false, if_true, htake, hdrop,
    Bool.false_eq_true]

lemma scan_comment {line : Int} {body rest : List Char} (hbody : '\n' ∉ body)
    (hrest : ∀ c ∈ rest.head?, c = '\n') :
    scan line '#' (body ++ rest) = .ok ⟨'#' :: body, none, rest⟩ := by
  have hrun : ∀ c ∈ body, (c != '\n') = true :=
    fun c hc => bne_iff_ne.2 fun h => hbody (h ▸ hc)
  have hstop : ∀ c ∈ rest.head?, (c != '\n') = false := fun c hc => by simp [hrest c hc]
  have hscan : scan line '#' (body ++ rest) = .ok ⟨'#' :: (body ++ rest).takeWhile (· != '\n'),
      none, (body ++ rest).dropWhile (· != '\n')⟩ := rfl
  rw [hscan, takeWhile_run hrun hstop, dropWhile_run hrun hstop]

lemma scan_idle {line : Int} {c : Char} {cs : List Char} (h : isIdle c = true) :
    scan line c cs = .ok ⟨[c], none, cs⟩ := by
  simp only [isIdle, Bool.and_eq_true, Option.isNone_iff_eq_none, bne_iff_ne, Bool.not_eq_true']
    at h
  obtain ⟨⟨⟨⟨hsingle, hcompound⟩, hhash⟩, hquote⟩, halnum⟩ := h
  have hdigit : c.isDigit = false := by
    refine Bool.eq_false_iff.2 fun hd => ?_
    rw [isAlphanum_of_isDigit hd] at halnum
    cases halnum
  unfold scan
  rw [hsingle, hcompound]
  simp only [hhash, hquote, hdigit, halnum, if_false, Bool.false_eq_true]

lemma scan_digits {line : Int} {c : Char} {cs digits rest : List Char} (hne : digits ≠ [])
    (hdigits : ∀ d ∈ digits, d.isDigit = true) (hrest : ∀ d ∈ rest.head?, isNumberPart d = false)
    (happ : c :: cs = digits ++ rest) :
    scan line c cs = if digits.length ≤ digitLimit then
      .ok ⟨digits, some (.literal .int, .int (Text.decimalValue digits)), rest⟩
    else .error (.fault (.numeralTooLong digits.length)) := by
  have hrun := fun d hd => isNumberPart_of_isDigit (hdigits d hd)
  have hc : c.isDigit = true := by
    cases digits with
    | nil => exact absurd rfl hne
    | cons d ds =>
      cases happ
      exact hdigits c (by simp)
  rw [scan_digit hc, happ, takeWhile_run hrun hrest, dropWhile_run hrun hrest,
    lexeme_of_digits hne hdigits, Numeral.ofDigits]
  by_cases hlength : digits.length ≤ digitLimit
  · rw [if_pos hlength, if_pos hlength]
    rfl
  · rw [if_neg hlength, if_neg hlength]
    rfl

/-- The lexeme of an integer has no more digits than the limit. -/
def WithinLimit (lexeme : List Char) (literal : Json) : Prop :=
  ∀ n, literal = .int n → lexeme.length ≤ digitLimit

lemma withinLimit_of_scan {line : Int} {c : Char} {cs lexeme rest : List Char} {kind : TokenKind}
    {literal : Json} {s : Scan} (h : Stands lexeme rest kind literal)
    (happ : c :: cs = lexeme ++ rest) (hs : scan line c cs = .ok s) :
    WithinLimit lexeme literal := by
  intro n hn
  cases h with
  | integer hne hdigits hrest =>
    by_contra hlong
    rw [scan_digits hne hdigits hrest happ, if_neg hlong] at hs
    cases hs
  | _ => cases hn

/-- **A token that stands in a place is scanned there**, if it is within the limit. -/
theorem scan_of_withinLimit {line : Int} {c : Char} {cs lexeme rest : List Char} {kind : TokenKind}
    {literal : Json} (h : Stands lexeme rest kind literal) (hlimit : WithinLimit lexeme literal)
    (happ : c :: cs = lexeme ++ rest) :
    scan line c cs = .ok ⟨lexeme, some (kind, literal), rest⟩ := by
  cases h with
  | single hkind =>
    cases happ
    unfold scan
    rw [hkind]
    rfl
  | joined hkinds =>
    cases happ
    unfold scan
    rw [single?_of_compound? hkinds, hkinds]
    rfl
  | alone hkinds hrest =>
    obtain ⟨rfl, rfl⟩ : c = _ ∧ cs = rest := List.cons.inj happ
    unfold scan
    rw [single?_of_compound? hkinds, hkinds]
    dsimp only
    split
    · exact absurd rfl hrest
    · rfl
  | string pieces =>
    have hcs : c = '\x22' ∧ cs = pieces.flatMap Piece.written ++ '\x22' :: rest := by
      simpa using happ
    obtain ⟨rfl, rfl⟩ := hcs
    rw [scan_quote, stringBody?_pieces]
    rfl
  | integer hne hdigits hrest =>
    -- the limit is on integers only
    rw [scan_digits hne hdigits hrest happ, if_pos (hlimit _ rfl)]
  | @double whole fraction ignored _ hne hwhole hfraction hdot hignored hrest =>
    have hrun : ∀ d ∈ whole ++ '.' :: (fraction ++ ignored), isNumberPart d = true := by
      simp only [List.mem_append, List.mem_cons]
      rintro d (hd | rfl | hd | hd)
      · exact isNumberPart_of_isDigit (hwhole d hd)
      · rfl
      · exact isNumberPart_of_isDigit (hfraction d hd)
      · exact hignored d hd
    have hc : c.isDigit = true := by
      cases whole with
      | nil => exact absurd rfl hne
      | cons d ds =>
        cases happ
        exact hwhole c (by simp)
    rw [scan_digit hc, happ, takeWhile_run hrun hrest, dropWhile_run hrun hrest,
      lexeme_of_dot hwhole hfraction hdot]
    rfl
  | @word d ds _ _ hd hds hrest hword =>
    have hrun : ∀ x ∈ d :: ds, x.isAlphanum = true :=
      List.forall_mem_cons.2 ⟨isAlphanum_of_isAlpha hd, hds⟩
    obtain rfl : c = d := (List.cons.inj happ).1
    rw [scan_letter hd, happ, takeWhile_run hrun hrest, dropWhile_run hrun hrest,
      ofWord_of_mem hword]
  | @identifier d ds _ hd hds hrest hword =>
    have hrun : ∀ x ∈ d :: ds, x.isAlphanum = true :=
      List.forall_mem_cons.2 ⟨isAlphanum_of_isAlpha hd, hds⟩
    obtain rfl : c = d := (List.cons.inj happ).1
    rw [scan_letter hd, happ, takeWhile_run hrun hrest, dropWhile_run hrun hrest,
      ofWord_of_not_mem hword]

/-- **A token that stands in a place is the one that is scanned there.** -/
theorem scan_of_stands {line : Int} {c : Char} {cs lexeme rest : List Char} {kind : TokenKind}
    {literal : Json} {s : Scan} (h : Stands lexeme rest kind literal)
    (happ : c :: cs = lexeme ++ rest) (hs : scan line c cs = .ok s) :
    s = ⟨lexeme, some (kind, literal), rest⟩ := by
  have hscan : scan line c cs = .ok ⟨lexeme, some (kind, literal), rest⟩ :=
    scan_of_withinLimit h (withinLimit_of_scan h happ hs) happ
  exact Except.ok.inj (hs.symm.trans hscan)

end Hive.Lexer
