import Hive.Diagnostic
import Hive.Numeral
import Hive.Token.Basic

/-!
Lexing: from the text of a program to its tokens. One **scan** reads what starts at a character, and
`Token.lex` scans until the text is used up. A scan that makes no token skips a character or a
comment. The only error is a string that is not closed.
-/

namespace Hive

namespace Lexer

/-- What a scan reads off the front of a text: the characters it uses, the kind and literal of the
token they make, and the rest. -/
structure Scan where
  written : List Char
  token : Option (TokenKind × Json)
  rest : List Char

/-- The kind of a character that is a token on its own. -/
def single? : Char → Option TokenKind
  | '(' => some .leftParen
  | ')' => some .rightParen
  | '\x7b' => some .leftBrace
  | '\x7d' => some .rightBrace
  | '[' => some .leftBracket
  | ']' => some .rightBracket
  | ',' => some .comma
  | '.' => some .dot
  | '-' => some .minus
  | '+' => some .plus
  | ';' => some .semicolon
  | '/' => some .slash
  | '*' => some .star
  | _ => none

/-- The kinds of a character that takes a following `=`: without it, and with it. -/
def compound? : Char → Option (TokenKind × TokenKind)
  | '!' => some (.bang, .bangEqual)
  | '=' => some (.equal, .equalEqual)
  | '>' => some (.greater, .greaterEqual)
  | '<' => some (.less, .lessEqual)
  | _ => none

def unescape : Char → Char
  | 'n' => '\n'
  | 't' => '\t'
  | c => c

/-- A string after its opening quote: the characters it stands for, the characters it is written
with, its closing quote among them, and the rest. There is none if the string is not closed. -/
def stringBody? : List Char → Option (List Char × List Char × List Char)
  | [] => none
  | '\x22' :: cs => some ([], ['\x22'], cs)
  | '\\' :: c :: cs =>
    (stringBody? cs).map fun (decoded, written, rest) =>
      (unescape c :: decoded, '\\' :: c :: written, rest)
  | c :: cs =>
    (stringBody? cs).map fun (decoded, written, rest) => (c :: decoded, c :: written, rest)

/-- Whether a character goes on with a number. -/
def isNumberPart (c : Char) : Bool := c.isDigit || c == '.'

def numberToken : Number → TokenKind × Json
  | .int n => (.literal .int, .int n)
  | .flt x => (.literal .flt, .flt x)

/-- Scans what starts at the character `c`, on the given line. -/
def scan (line : Int) (c : Char) (cs : List Char) : Except Failure Scan :=
  match single? c, compound? c with
  | some kind, _ => .ok ⟨[c], some (kind, .null), cs⟩
  | none, some (alone, joined) =>
    match cs with
    | '=' :: rest => .ok ⟨[c, '='], some (joined, .null), rest⟩
    | _ => .ok ⟨[c], some (alone, .null), cs⟩
  | none, none =>
    if c = '#' then .ok ⟨c :: cs.takeWhile (· != '\n'), none, cs.dropWhile (· != '\n')⟩
    else if c = '\x22' then
      match stringBody? cs with
      | some (decoded, written, rest) =>
        .ok ⟨c :: written, some (.literal .str, .str (String.ofList decoded)), rest⟩
      | none => .error (.error (.on line .unterminatedString))
    else if c.isDigit then
      let text := c :: cs.takeWhile isNumberPart
      match Numeral.lexeme text with
      | .ok number => .ok ⟨text, some (numberToken number), cs.dropWhile isNumberPart⟩
      | .error f => .error (.fault f)
    else if c.isAlphanum then
      let text := c :: cs.takeWhile Char.isAlphanum
      .ok ⟨text, some (.ofWord (String.ofList text), .null), cs.dropWhile Char.isAlphanum⟩
    else .ok ⟨[c], none, cs⟩

/-! ### A scan uses up what it reads -/

theorem stringBody?_append {cs decoded written rest : List Char}
    (h : stringBody? cs = some (decoded, written, rest)) : written ++ rest = cs := by
  fun_induction stringBody? cs generalizing decoded written rest with
  | case1 => cases h
  | case2 cs => cases h; rfl
  | case3 c cs ih =>
    obtain ⟨⟨d, w, r⟩, hb, hp⟩ := Option.map_eq_some_iff.1 h
    cases hp
    simp [ih hb]
  | case4 c cs _ _ ih =>
    obtain ⟨⟨d, w, r⟩, hb, hp⟩ := Option.map_eq_some_iff.1 h
    cases hp
    simp [ih hb]

theorem scan_append {line : Int} {c : Char} {cs : List Char} {s : Scan}
    (h : scan line c cs = .ok s) : s.written ++ s.rest = c :: cs := by
  unfold scan at h
  split at h
  · cases h; rfl
  · split at h <;> cases h <;> rfl
  · split at h
    · cases h; simp
    split at h
    · split at h
      · rename_i hb
        cases h
        simp [stringBody?_append hb]
      · cases h
    split at h
    · dsimp only at h
      split at h
      · cases h; simp
      · cases h
    split at h <;> cases h <;> simp

theorem scan_written_ne_nil {line : Int} {c : Char} {cs : List Char} {s : Scan}
    (h : scan line c cs = .ok s) : s.written ≠ [] := by
  unfold scan at h
  split at h
  · cases h; simp
  · split at h <;> cases h <;> simp
  · split at h
    · cases h; simp
    split at h
    · split at h
      · cases h; simp
      · cases h
    split at h
    · dsimp only at h
      split at h
      · cases h; simp
      · cases h
    split at h <;> cases h <;> simp

theorem scan_rest_length {line : Int} {c : Char} {cs : List Char} {s : Scan}
    (h : scan line c cs = .ok s) : s.rest.length ≤ cs.length := by
  have happ := congrArg List.length (scan_append h)
  have hne := List.length_pos_iff.2 (scan_written_ne_nil h)
  simp only [List.length_append, List.length_cons] at happ
  omega

/-- The tokens of a text that starts on the given line, the end token last. -/
def tokensFrom (line : Nat) (text : List Char) : Except Failure (List Token) :=
  match text with
  | [] => .ok [.atEnd line]
  | c :: cs =>
    match h : scan line c cs with
    | .error e => .error e
    | .ok s =>
      have := scan_rest_length h
      match tokensFrom (line + s.written.count '\n') s.rest with
      | .error e => .error e
      | .ok tokens =>
        match s.token with
        | some (kind, literal) =>
          -- a token is on the line where it starts
          .ok (⟨kind, .str (String.ofList s.written), literal, line⟩ :: tokens)
        | none => .ok tokens
termination_by text.length
decreasing_by exact Nat.lt_succ_of_le this

end Lexer

/-- The tokens of a program, of which the last one stands for the end. -/
def Token.lex (source : String) : Except Failure (List Token) := Lexer.tokensFrom 1 source.toList

end Hive
