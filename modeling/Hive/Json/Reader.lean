import Hive.Json.Basic
import Hive.Numeral

/-!
Reading JSON. Besides standard JSON the names `NaN`, `Infinity` and `-Infinity` are read as numbers,
and of several fields of one name the last counts. A text that cannot be read is reported with the
place at which reading failed.
-/

namespace Hive.Json.Reader

/-- Why reading failed: something else was expected where `rest` begins, or a numeral is at
fault. -/
inductive Misread where
  | expected (what : String) (rest : List Char)
  | fault (f : Fault)

/-- A reader: what it reads off the front of a text, and the rest. -/
abbrev Reads (α : Type) := List Char → Except Misread (α × List Char)

def skipBlanks (cs : List Char) : List Char :=
  cs.dropWhile fun c => c == ' ' || c == '\t' || c == '\n' || c == '\r'

/-- The text after a given word, if it starts with it. -/
def after? : List Char → List Char → Option (List Char)
  | [], cs => some cs
  | _ :: _, [] => none
  | w :: ws, c :: cs => if w = c then after? ws cs else none

/-! ### Texts -/

def hexValue? (c : Char) : Option Nat :=
  if c.isDigit then some (c.toNat - 48)
  else if 'a' ≤ c ∧ c ≤ 'f' then some (c.toNat - 87)
  else if 'A' ≤ c ∧ c ≤ 'F' then some (c.toNat - 55)
  else none

/-- Four hexadecimal digits and at least one more character. -/
def hexUnit? : List Char → Option (Nat × List Char)
  | a :: b :: c :: d :: e :: cs => do
    let high := (← hexValue? a) * 16 + (← hexValue? b)
    let low := (← hexValue? c) * 16 + (← hexValue? d)
    return (high * 256 + low, e :: cs)
  | _ => none

/-- The character of a single unit; half of a pair stands for no character of its own. -/
def ofUnit (n : Nat) : Char :=
  if 0xD800 ≤ n ∧ n < 0xE000 then Char.ofNat 0xFFFD else Char.ofNat n

def shortEscape? (c : Char) : Option Char :=
  if c == '\x22' || c == '\\' || c == '/' then some c
  else if c == 'b' then some '\x08'
  else if c == 'f' then some '\x0c'
  else if c == 'n' then some '\n'
  else if c == 'r' then some '\r'
  else if c == 't' then some '\t'
  else none

/-- The second unit of a pair, if there is one. -/
def lowUnit? : List Char → Option (Nat × List Char)
  | '\\' :: 'u' :: cs => do
    let (n, rest) ← hexUnit? cs
    if 0xDC00 ≤ n ∧ n < 0xE000 then return (n, rest) else none
  | _ => none

/-- A text after its opening quote; `start` is the text from that quote on. -/
def textBody (start : List Char) : Nat → Reads (List Char)
  | 0, _ | _, [] | _, ['\\'] => .error (.expected "Unterminated string starting at" start)
  | budget + 1, c :: cs =>
    if c == '\x22' then .ok ([], cs)
    else if c == '\\' then
      match cs with
      | [] => .error (.expected "Unterminated string starting at" start)
      | 'u' :: digits =>
        match hexUnit? digits with
        | none => .error (.expected "Invalid \\uXXXX escape" cs)
        | some (n, rest) =>
          match if 0xD800 ≤ n ∧ n < 0xDC00 then lowUnit? rest else none with
          | some (low, rest) => do
            -- two units make up one character beyond the first plane
            let pair := 0x10000 + (n - 0xD800) * 0x400 + (low - 0xDC00)
            let (s, rest) ← textBody start budget rest
            return (Char.ofNat pair :: s, rest)
          | none => do
            let (s, rest) ← textBody start budget rest
            return (ofUnit n :: s, rest)
      | e :: rest =>
        match shortEscape? e with
        | none => .error (.expected "Invalid \\escape" (c :: cs))
        | some e => do
          let (s, rest) ← textBody start budget rest
          return (e :: s, rest)
    else if c.toNat < 0x20 then .error (.expected "Invalid control character at" (c :: cs))
    else do
      let (s, rest) ← textBody start budget cs
      return (c :: s, rest)

def text (start : List Char) : Reads String := fun cs => do
  let (s, rest) ← textBody start (cs.length + 1) cs
  return (String.ofList s, rest)

/-! ### Numbers -/

/-- A mark followed by at least one digit: the digits and the rest. -/
def digitsAfter? (cs : List Char) : Option (List Char × List Char) :=
  let digits := cs.takeWhile Char.isDigit
  if digits.isEmpty then none else some (digits, cs.dropWhile Char.isDigit)

/-- The fraction of a number, if a point and a digit come next. -/
def fraction : List Char → List Char × List Char
  | '.' :: cs => (digitsAfter? cs).getD ([], '.' :: cs)
  | cs => ([], cs)

/-- The exponent of a number, if a mark and a digit come next. -/
def exponent? : List Char → Option (Int × List Char)
  | e :: cs =>
    if e == 'e' || e == 'E' then
      let (negative, body) := Numeral.sign cs
      (digitsAfter? body).map fun (digits, rest) =>
        (Binary64.signed negative (Text.decimalValue digits), rest)
    else none
  | [] => none

/-- The whole part of a number: a zero alone, or digits that start with none. -/
def whole? : List Char → Option (List Char × List Char)
  | '0' :: cs => some (['0'], cs)
  | cs => digitsAfter? cs

/-- A number, at the front of a text that may start with a minus sign. -/
def number (start : List Char) : Except Misread (Json × List Char) :=
  let negative := start.head? == some '-'
  match whole? (if negative then start.tail else start) with
  | none => .error (.expected "Expecting value" start)
  | some (digits, rest) =>
    let (decimals, rest) := fraction rest
    match exponent? rest, decimals with
    | none, [] =>
      match Numeral.ofDigits digits with
      | .ok n => .ok (.int (Binary64.signed negative n), rest)
      | .error f => .error (.fault f)
    | exponent, _ =>
      -- a fraction or an exponent makes the number a double
      let (e, rest) := exponent.getD (0, rest)
      let value := Text.decimalValue (digits ++ decimals)
      .ok (.flt (.ofDecimal negative value (e - decimals.length)), rest)

/-! ### Data -/

def names : List (List Char × Json) :=
  [("null".toList, .null), ("true".toList, .bool true), ("false".toList, .bool false),
   ("NaN".toList, .flt .nan), ("Infinity".toList, .flt (.infinity false)),
   ("-Infinity".toList, .flt (.infinity true))]

/-- A datum with a name, at the front of a text. -/
def named? (cs : List Char) : Option (Json × List Char) :=
  names.findSome? fun (name, x) => (after? name cs).map fun rest => (x, rest)

/-- The elements of a list, up to its closing bracket. -/
def elements (value : Reads Json) : Nat → Reads (List Json)
  | 0, cs => .error (.expected "Expecting value" cs)
  | budget + 1, cs => do
    let (x, cs) ← value cs
    match skipBlanks cs with
    | ']' :: rest => return ([x], rest)
    | ',' :: rest =>
      let (xs, rest) ← elements value budget (skipBlanks rest)
      return (x :: xs, rest)
    | rest => throw (.expected "Expecting ',' delimiter" rest)

/-- The fields of an object, up to its closing brace. -/
def fields (value : Reads Json) : Nat → Reads (List (String × Json))
  | 0, cs => .error (.expected "Expecting value" cs)
  | budget + 1, cs => do
    let (name, cs) ← match cs with
      | '\x22' :: rest => text cs rest
      | _ => throw (.expected "Expecting property name enclosed in double quotes" cs)
    let cs ← match skipBlanks cs with
      | ':' :: rest => pure rest
      | rest => throw (.expected "Expecting ':' delimiter" rest)
    let (x, cs) ← value (skipBlanks cs)
    match skipBlanks cs with
    | '\x7d' :: rest => return ([(name, x)], rest)
    | ',' :: rest =>
      let (xs, rest) ← fields value budget (skipBlanks rest)
      return ((name, x) :: xs, rest)
    | rest => throw (.expected "Expecting ',' delimiter" rest)

/-- A datum at the front of a text. The budget bounds the nesting. -/
def value : Nat → Reads Json
  | 0, cs => .error (.expected "Expecting value" cs)
  | _, [] => .error (.expected "Expecting value" [])
  | budget + 1, c :: rest =>
    if c == '\x22' then do
      let (s, rest) ← text (c :: rest) rest
      return (.str s, rest)
    else if c == '[' then
      match skipBlanks rest with
      | ']' :: rest => .ok (.arr [], rest)
      | rest => do
        let (xs, rest) ← elements (value budget) (rest.length + 1) rest
        return (.arr xs, rest)
    else if c == '\x7b' then
      match skipBlanks rest with
      | '\x7d' :: rest => .ok (.obj [], rest)
      | rest => do
        let (xs, rest) ← fields (value budget) (rest.length + 1) rest
        return (.obj (Table.ofList xs), rest)
    else
      match named? (c :: rest) with
      | some found => .ok found
      | none => number (c :: rest)

/-- The fault of a text that fails to read, the rest of which is given: line and column count from
one, and the offset from zero. -/
def fault (whole : List Char) : Misread → Fault
  | .fault f => f
  | .expected what rest =>
    let offset := whole.length - rest.length
    let before := whole.take offset
    let column := (before.reverse.takeWhile (· != '\n')).length + 1
    .notJson what (before.count '\n' + 1) column offset

/-- A whole text: one datum, with blanks around it. -/
def document (cs : List Char) : Except Misread Json :=
  if cs.head? == some '\uFEFF' then
    .error (.expected "Unexpected UTF-8 BOM (decode using utf-8-sig)" cs)
  else do
    let (x, rest) ← value (cs.length + 1) (skipBlanks cs)
    match skipBlanks rest with
    | [] => return x
    | rest => throw (.expected "Extra data" rest)

end Hive.Json.Reader

namespace Hive.Json

def parse (s : String) : Except Fault Json :=
  match Reader.document s.toList with
  | .ok x => .ok x
  | .error e => .error (Reader.fault s.toList e)

end Hive.Json
