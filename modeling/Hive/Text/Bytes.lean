/-!
From the bytes of a file to text: UTF-8 is decoded, and every line end becomes a line feed.
-/

namespace Hive.Text

inductive Malformation where
  | startByte
  | continuationByte
  | cutOff
  deriving DecidableEq, Repr

/-- The first place at which bytes are no UTF-8 text: where it starts, the byte there, and how many
bytes it covers. -/
structure Undecodable where
  malformation : Malformation
  position : Nat
  byte : UInt8
  count : Nat
  deriving DecidableEq, Repr

def Malformation.reason : Malformation → String
  | .startByte => "invalid start byte"
  | .continuationByte => "invalid continuation byte"
  | .cutOff => "unexpected end of data"

/-- The bytes that may come after a first byte of a longer sequence: for each, the least and the
greatest one. The first byte `none` starts no such sequence. -/
def continuations? (lead : UInt8) : Option (List (UInt8 × UInt8)) :=
  let tail := (0x80, 0xBF)
  if lead < 0xC2 then none
  else if lead < 0xE0 then some [tail]
  else if lead == 0xE0 then some [(0xA0, 0xBF), tail]
  else if lead == 0xED then some [(0x80, 0x9F), tail]
  else if lead < 0xF0 then some [tail, tail]
  else if lead == 0xF0 then some [(0x90, 0xBF), tail, tail]
  else if lead < 0xF4 then some [tail, tail, tail]
  else if lead == 0xF4 then some [(0x80, 0x8F), tail, tail]
  else none

/-- Reads the bytes after a first byte, of which `seen` bytes have been read already: what is wrong
with them and how many bytes that covers, or the bytes after the sequence. -/
def continueSequence (seen : Nat) :
    List (UInt8 × UInt8) → List UInt8 → (Malformation × Nat) ⊕ List UInt8
  | [], rest => .inr rest
  | _ :: _, [] => .inl (.cutOff, seen)
  | (low, high) :: more, b :: rest =>
    if low ≤ b && b ≤ high then continueSequence (seen + 1) more rest
    else .inl (.continuationByte, seen)

/-- The first malformed place of some bytes, if there is one. One step of the budget is spent on
each character. -/
def firstMalformed? : Nat → Nat → List UInt8 → Option Undecodable
  | 0, _, _ | _, _, [] => none
  | budget + 1, position, b :: rest =>
    if b < 0x80 then firstMalformed? budget (position + 1) rest
    else match continuations? b with
      | none => some ⟨.startByte, position, b, 1⟩
      | some expected =>
        match continueSequence 1 expected rest with
        | .inl (malformation, count) => some ⟨malformation, position, b, count⟩
        | .inr after => firstMalformed? budget (position + expected.length + 1) after

def Undecodable.message (u : Undecodable) : String :=
  let place :=
    if u.count == 1 then
      s!"byte 0x{String.ofList (Nat.toDigits 16 u.byte.toNat)} in position {u.position}"
    else s!"bytes in position {u.position}-{u.position + u.count - 1}"
  "'utf-8' codec can't decode " ++ place ++ ": " ++ u.malformation.reason

/-- The characters of a text with every line end written as a line feed. -/
def unifyLineEnds : List Char → List Char
  | [] => []
  | '\r' :: '\n' :: cs => '\n' :: unifyLineEnds cs
  | '\r' :: cs => '\n' :: unifyLineEnds cs
  | c :: cs => c :: unifyLineEnds cs

def ofBytes (bytes : ByteArray) : Except Undecodable String :=
  match String.fromUTF8? bytes with
  | some s => .ok (String.ofList (unifyLineEnds s.toList))
  | none =>
    .error ((firstMalformed? bytes.size 0 bytes.toList).getD ⟨.cutOff, 0, 0, bytes.size⟩)

end Hive.Text
