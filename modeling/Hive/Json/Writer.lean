import Hive.Json.Basic

/-!
Writing JSON. Characters beyond ASCII stand for themselves, and infinities and nan have names.
-/

namespace Hive.Json

def escape (c : Char) : List Char :=
  if c == '\x22' || c == '\\' then ['\\', c]
  else if c == '\n' then ['\\', 'n']
  else if c == '\r' then ['\\', 'r']
  else if c == '\t' then ['\\', 't']
  else if c == '\x08' then ['\\', 'b']
  else if c == '\x0c' then ['\\', 'f']
  else if c.toNat < 0x20 then '\\' :: 'u' :: Text.hexDigits 4 c.toNat
  else [c]

def writeText (s : String) : String :=
  String.ofList ('\x22' :: s.toList.flatMap escape ++ ['\x22'])

def writeDouble (x : Binary64) : String :=
  if x = .nan then "NaN"
  else if x = .infinity false then "Infinity"
  else if x = .infinity true then "-Infinity"
  else x.text

/-- Where a written datum is broken into lines. -/
inductive Style where
  /-- All on one line. -/
  | compact
  /-- Each element and field on a line of its own, two more spaces in at each level. -/
  | indented
  deriving DecidableEq, Repr

/-- The line break before an element at a level of nesting. -/
def Style.break : Style → Nat → String
  | .compact, _ => ""
  | .indented, level => String.ofList ('\n' :: List.replicate (2 * level) ' ')

/-- Written parts, put between brackets. -/
def enclose (style : Style) (level : Nat) (opening closing : String) (parts : List String) :
    String :=
  if parts.isEmpty then opening ++ closing
  else
    let lead := style.break (level + 1)
    opening ++ lead ++ ("," ++ (if style = .compact then " " else lead)).intercalate parts
      ++ style.break level ++ closing

mutual
def write (style : Style) (level : Nat) : Json → Except Fault String
  | .null => .ok "null"
  | .bool b => .ok (if b then "true" else "false")
  | .int n => integerText n
  | .flt x => .ok (writeDouble x)
  | .str s => .ok (writeText s)
  | .arr xs => do return enclose style level "[" "]" (← writeElements style (level + 1) xs)
  | .obj fields => do
    return enclose style level "\x7b" "\x7d" (← writeFields style (level + 1) fields)
def writeElements (style : Style) (level : Nat) : List Json → Except Fault (List String)
  | [] => .ok []
  | x :: xs => do return (← write style level x) :: (← writeElements style level xs)
def writeFields (style : Style) (level : Nat) : List (String × Json) → Except Fault (List String)
  | [] => .ok []
  | (k, x) :: xs => do
    return (writeText k ++ ": " ++ (← write style level x)) :: (← writeFields style level xs)
end

def render (style : Style) (x : Json) : Except Fault String := write style 0 x

end Hive.Json
